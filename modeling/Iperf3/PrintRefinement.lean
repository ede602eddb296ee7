import Iperf3.JsonRoundTrip
import Iperf3.PrintBuffer
import Mathlib.Tactic

/-!
# The printer and the text of an item

The invariant of the buffer is that it begins with the text so far.  It is
kept by the functions of the printer, each of which appends its part of the
text, never leaves the memory, and fails only where memory is refused.
-/

namespace Iperf3

open JsonByte

/-- An outcome that is `Q`, or a refusal that is explained. -/
def Safe {α : Type} (refusal : Prop) (Q : α → Prop) : Except PrintFailure α → Prop
  | .ok a => Q a
  | .error .refused => refusal
  | .error .outside => False

theorem Safe.bind {α β : Type} {refusal : Prop} {Q : α → Prop} {R : β → Prop}
    {r : Except PrintFailure α} {next : α → Except PrintFailure β} (h : Safe refusal Q r)
    (hnext : ∀ a, Q a → Safe refusal R (next a)) : Safe refusal R (r >>= next) := by
  cases r with
  | ok a => exact hnext a h
  | error failure => cases failure <;> exact h

theorem Safe.weaken {α : Type} {refusal refusal' : Prop} {Q : α → Prop}
    {r : Except PrintFailure α} (h : Safe refusal Q r) (hrefusal : refusal → refusal') :
    Safe refusal' Q r := by
  cases r with
  | ok a => exact h
  | error failure =>
      cases failure with
      | outside => exact h
      | refused => exact hrefusal h

namespace PrintBuffer

/-- The memory begins with these bytes. -/
def Begins (p : PrintBuffer) (bytes : List UInt8) : Prop :=
  p.buffer.take bytes.length = bytes.map some

theorem Begins.length_le {p : PrintBuffer} {bytes : List UInt8} (h : p.Begins bytes) :
    bytes.length ≤ p.buffer.length := by
  have hlength := congrArg List.length h
  rw [List.length_take, List.length_map] at hlength
  omega

theorem Begins.of_append {p : PrintBuffer} {bytes later : List UInt8}
    (h : p.Begins (bytes ++ later)) : p.Begins bytes := by
  unfold Begins at h ⊢
  have htake := congrArg (List.take bytes.length) h
  rwa [List.take_take, List.length_append, Nat.min_eq_left (Nat.le_add_right _ _), List.map_append,
    List.take_left' (List.length_map _)] at htake

theorem Begins.drop {p : PrintBuffer} {bytes later : List UInt8}
    (h : p.Begins (bytes ++ later)) {n : ℕ} (hn : n ≤ bytes.length) :
    ∃ rest, p.buffer.drop n = ((bytes ++ later).drop n).map some ++ rest := by
  refine ⟨p.buffer.drop (bytes ++ later).length, ?_⟩
  have hsplit := List.take_append_drop (bytes ++ later).length p.buffer
  unfold Begins at h
  rw [h] at hsplit
  conv_lhs => rw [← hsplit]
  have hle : n ≤ ((bytes ++ later).map some).length := by
    rw [List.length_map, List.length_append]
    omega
  rw [List.drop_append_of_le_length hle, List.map_drop]

/-! ## Writing -/

theorem write_cons (p : PrintBuffer) (index : ℕ) (c : UInt8) (bytes : List UInt8) :
    p.write index (c :: bytes) =
      p.write index [c] >>= fun p => p.write (index + 1) bytes := by
  rw [write, write]
  split_ifs
  · rfl
  · rfl

/-- The buffer after `bytes` have been written from an index on. -/
def overwrite (p : PrintBuffer) (index : ℕ) (bytes : List UInt8) : PrintBuffer where
  buffer := p.buffer.take index ++ bytes.map some ++ p.buffer.drop (index + bytes.length)
  length := p.length
  offset := p.offset
  depth := p.depth
  noalloc := p.noalloc
  format := p.format

theorem write_eq (bytes : List UInt8) :
    ∀ (p : PrintBuffer) (index : ℕ), index + bytes.length ≤ p.buffer.length →
      p.write index bytes = .ok (p.overwrite index bytes) := by
  induction bytes with
  | nil =>
      intro p index _
      simp [write, overwrite]
  | cons c bytes ih =>
      intro p index hfits
      rw [List.length_cons] at hfits
      unfold write
      rw [if_pos (by omega), ih _ _ (by rw [List.length_set]; omega)]
      unfold overwrite
      congr 2
      have htake : (p.buffer.set index (some c)).take (index + 1) =
          p.buffer.take index ++ [some c] := by
        rw [List.take_succ_eq_append_getElem (by rw [List.length_set]; omega),
          List.take_set_of_le le_rfl, List.getElem_set_self]
      have hdrop : (p.buffer.set index (some c)).drop (index + 1 + bytes.length) =
          p.buffer.drop (index + (c :: bytes).length) := by
        rw [List.drop_set_of_lt (by omega), List.length_cons]
        congr 1
        omega
      rw [htake, hdrop]
      simp

theorem length_overwrite {p : PrintBuffer} {index : ℕ} {bytes : List UInt8}
    (h : index + bytes.length ≤ p.buffer.length) :
    (p.overwrite index bytes).buffer.length = p.buffer.length := by
  unfold overwrite
  simp only [List.length_append, List.length_take, List.length_map, List.length_drop]
  omega

theorem begins_overwrite {p : PrintBuffer} {text : List UInt8} (h : p.Begins text)
    (bytes : List UInt8) : (p.overwrite text.length bytes).Begins (text ++ bytes) := by
  unfold Begins at h ⊢
  unfold overwrite
  rw [h, ← List.map_append]
  exact List.take_left' (List.length_map _)

/-! ## The invariant -/

/-- The memory begins with the text so far and some bytes behind it. -/
structure Holds (format : Bool) (depth : ℕ) (text later : List UInt8) (p : PrintBuffer) :
    Prop where
  noalloc_eq : p.noalloc = false
  format_eq : p.format = format
  depth_eq : p.depth = depth
  length_eq : p.length = p.buffer.length
  zero_notMem : (0 : UInt8) ∉ text
  begins : p.Begins (text ++ later)

/-- The offset is behind the text, and there is room for one byte. -/
structure Ready (format : Bool) (depth : ℕ) (text : List UInt8) (p : PrintBuffer) : Prop
    extends Holds format depth text [] p where
  offset_eq : p.offset = text.length
  inside : text.length < p.length

/-- The offset is somewhere in the text, which ends with a zero. -/
structure Ended (format : Bool) (depth : ℕ) (text : List UInt8) (p : PrintBuffer) : Prop
    extends Holds format depth text [0] p where
  offset_le : p.offset ≤ text.length

variable {reallocate : ℕ → Bool} {limit : ℕ} {format : Bool} {depth : ℕ} {text : List UInt8}
  {p : PrintBuffer}

/-- A request for at most `limit` bytes is refused. -/
def Refuses (reallocate : ℕ → Bool) (limit : ℕ) : Prop :=
  ∃ size ≤ limit, reallocate size = false

theorem resize_take {cells : List (Option UInt8)} {n size : ℕ} (hn : n ≤ cells.length)
    (hsize : n ≤ size) : (resize cells size).take n = cells.take n := by
  unfold resize
  rw [List.take_append_of_le_length (by rw [List.length_take]; omega), List.take_take,
    Nat.min_eq_left hsize]

theorem length_resize (cells : List (Option UInt8)) (size : ℕ) :
    (resize cells size).length = size := by
  unfold resize
  rw [List.length_append, List.length_take, List.length_replicate]
  omega

/-- Memory is left for `needed` bytes and one more. -/
theorem ensure_safe (h : Ready format depth text p) {needed : ℕ}
    (hlimit : 2 * (text.length + needed + 1) ≤ limit) (hmax : limit ≤ sizeMax) :
    Safe (Refuses reallocate limit)
      (fun p' => Ready format depth text p' ∧ text.length + needed < p'.buffer.length)
      (ensure reallocate p needed) := by
  have hoffset := h.offset_eq
  have hinside := h.inside
  have hlength := h.length_eq
  have hmod : (needed + p.offset + 1) % (sizeMax + 1) = text.length + needed + 1 := by
    rw [Nat.mod_eq_of_lt (by omega)]
    omega
  unfold ensure
  rw [if_neg (by omega), hmod]
  dsimp only
  split_ifs with hroom hnoalloc hlarge hgranted hgranted
  · exact ⟨h, by omega⟩
  · rw [h.noalloc_eq] at hnoalloc
    cases hnoalloc
  · omega
  · omega
  · refine ⟨⟨⟨h.noalloc_eq, h.format_eq, h.depth_eq, ?_, h.zero_notMem, ?_⟩, hoffset, ?_⟩, ?_⟩
    · exact (length_resize _ _).symm
    · have hbegins := h.begins
      have hle := hbegins.length_le
      unfold Begins at hbegins ⊢
      rw [← hbegins]
      apply resize_take hle
      rw [List.append_nil]
      omega
    · change text.length < _ * 2
      omega
    · rw [length_resize]
      omega
  · exact ⟨_, (by omega : (text.length + needed + 1) * 2 ≤ limit), by simpa using hgranted⟩

theorem Ready.holds_write (h : Ready format depth text p) {bytes : List UInt8}
    (hbytes : (0 : UInt8) ∉ bytes) (later : List UInt8)
    (hroom : text.length + (bytes.length + later.length) ≤ p.buffer.length) :
    p.write p.offset (bytes ++ later) = .ok (p.overwrite text.length (bytes ++ later)) ∧
      Holds format depth (text ++ bytes) later (p.overwrite text.length (bytes ++ later)) := by
  rw [← List.length_append] at hroom
  rw [h.offset_eq]
  refine ⟨write_eq _ _ _ hroom,
    ⟨h.noalloc_eq, h.format_eq, h.depth_eq, ?_, ?_, ?_⟩⟩
  · rw [length_overwrite hroom]
    exact h.length_eq
  · rw [List.mem_append, not_or]
    exact ⟨h.zero_notMem, hbytes⟩
  · have hbegins := h.begins
    rw [List.append_nil] at hbegins
    rw [List.append_assoc]
    exact begins_overwrite hbegins (bytes ++ later)

/-- A write with a zero behind it, which leaves the offset. -/
theorem Ready.write_ended (h : Ready format depth text p) {bytes : List UInt8}
    (hbytes : (0 : UInt8) ∉ bytes) (hroom : text.length + bytes.length < p.buffer.length)
    (refusal : Prop) :
    Safe refusal (Ended format depth (text ++ bytes)) (p.write p.offset (bytes ++ [0])) := by
  obtain ⟨hwrite, hholds⟩ := h.holds_write hbytes [0] hroom
  rw [hwrite]
  refine ⟨hholds, ?_⟩
  rw [List.length_append]
  exact h.offset_eq.le.trans (Nat.le_add_right _ _)

/-- A write behind which the offset is moved. -/
theorem Ready.write_ready (h : Ready format depth text p) {bytes : List UInt8}
    (hbytes : (0 : UInt8) ∉ bytes) (later : List UInt8)
    (hroom : text.length + (bytes.length + later.length) ≤ p.buffer.length)
    (hinside : text.length + bytes.length < p.buffer.length) (refusal : Prop) :
    Safe refusal (fun p' => Ready format depth (text ++ bytes) (p'.advance bytes.length))
      (p.write p.offset (bytes ++ later)) := by
  obtain ⟨hwrite, hholds⟩ := h.holds_write hbytes later hroom
  rw [hwrite]
  refine ⟨⟨hholds.noalloc_eq, hholds.format_eq, hholds.depth_eq, hholds.length_eq,
    hholds.zero_notMem, ?_⟩, ?_, ?_⟩
  · rw [List.append_nil]
    exact hholds.begins.of_append
  · change p.offset + bytes.length = _
    rw [List.length_append, h.offset_eq]
  · change _ < p.length
    rw [List.length_append, h.length_eq]
    exact hinside

theorem strlen_eq {bytes : List UInt8} (hbytes : (0 : UInt8) ∉ bytes)
    (rest : List (Option UInt8)) :
    strlen (bytes.map some ++ some 0 :: rest) = .ok bytes.length := by
  induction bytes with
  | nil => rfl
  | cons c bytes ih =>
      rw [List.mem_cons, not_or] at hbytes
      rw [List.map_cons, List.cons_append, strlen, if_neg (Ne.symm hbytes.1), ih hbytes.2]
      rfl

theorem Ended.updateOffset_eq (h : Ended format depth text p) :
    p.updateOffset = .ok { p with offset := text.length } := by
  have hoffset := h.offset_le
  obtain ⟨rest, hdrop⟩ := h.begins.drop hoffset
  rw [List.drop_append_of_le_length hoffset, List.map_append, List.append_assoc,
    List.map_singleton, List.singleton_append] at hdrop
  have hzero : (0 : UInt8) ∉ text.drop p.offset := fun hmem =>
    h.zero_notMem (List.mem_of_mem_drop hmem)
  have hsum : p.offset + (text.drop p.offset).length = text.length := by
    rw [List.length_drop]
    omega
  unfold updateOffset
  rw [hdrop, strlen_eq hzero rest]
  change Except.ok { p with offset := p.offset + (text.drop p.offset).length } = _
  rw [hsum]

theorem Ended.ready (h : Ended format depth text p) :
    Ready format depth text { p with offset := text.length } := by
  have hroom := h.begins.length_le
  rw [List.length_append, List.length_singleton] at hroom
  refine ⟨⟨h.noalloc_eq, h.format_eq, h.depth_eq, h.length_eq, h.zero_notMem, ?_⟩, rfl, ?_⟩
  · rw [List.append_nil]
    exact h.begins.of_append
  · change text.length < p.length
    rw [h.length_eq]
    omega

theorem Ended.updateOffset_safe (h : Ended format depth text p) (refusal : Prop) :
    Safe refusal (Ready format depth text) p.updateOffset := by
  rw [h.updateOffset_eq]
  exact h.ready

theorem Ready.enter (h : Ready format depth text p) : Ready format (depth + 1) text p.enter :=
  ⟨⟨h.noalloc_eq, h.format_eq, congrArg (· + 1) h.depth_eq, h.length_eq, h.zero_notMem, h.begins⟩,
    h.offset_eq, h.inside⟩

theorem Ended.leave (h : Ended format (depth + 1) text p) : Ended format depth text p.leave :=
  ⟨⟨h.noalloc_eq, h.format_eq, congrArg (· - 1) h.depth_eq, h.length_eq, h.zero_notMem, h.begins⟩,
    h.offset_le⟩

end PrintBuffer

namespace JsonPrinter

open PrintBuffer JsonText

variable {reallocate : ℕ → Bool} {limit : ℕ} {format : Bool} {depth : ℕ} {text : List UInt8}
  {p : PrintBuffer}

/-! ## Words, numbers and strings -/

theorem printWord_safe (h : Ready format depth text p) {needed : ℕ} {word : List UInt8}
    (hword : (0 : UInt8) ∉ word) (hneeded : needed = word.length + 1)
    (hlimit : 2 * ((text ++ word).length + 2) ≤ limit) (hmax : limit ≤ sizeMax) :
    Safe (Refuses reallocate limit) (Ended format depth (text ++ word))
      (printWord reallocate p needed word) := by
  rw [List.length_append] at hlimit
  unfold printWord
  apply (ensure_safe h (by omega) hmax).bind
  rintro p₁ ⟨h₁, hroom⟩
  exact h₁.write_ended hword (by omega) _

theorem length_bytes (s : CString) : s.bytes.length = s.length :=
  List.length_map _

theorem printNumber_safe (h : Ready format depth text p) (d : FloatScan.Double)
    (hlimit : 2 * ((text ++ (JsonNumber.numberText d).bytes).length + 2) ≤ limit)
    (hmax : limit ≤ sizeMax) :
    Safe (Refuses reallocate limit) (Ended format depth (text ++ (JsonNumber.numberText d).bytes))
      (printNumber reallocate p d) := by
  rw [List.length_append, length_bytes] at hlimit
  unfold printNumber
  rw [JsonNumber.printNumber_eq]
  dsimp only
  apply (ensure_safe h (by omega) hmax).bind
  rintro p₁ ⟨h₁, hroom⟩
  obtain ⟨hwrite, hholds⟩ := h₁.holds_write (zero_notMem_bytes (JsonNumber.numberText d)) [0] (by
    rw [length_bytes, List.length_singleton]
    omega)
  rw [hwrite]
  refine ⟨⟨hholds.noalloc_eq, hholds.format_eq, hholds.depth_eq, hholds.length_eq,
    hholds.zero_notMem, hholds.begins⟩, ?_⟩
  change p₁.offset + _ ≤ _
  rw [List.length_append, length_bytes, h₁.offset_eq]

theorem length_escape (c : UInt8) : (escape c).length = escapeCharacters c + 1 := by
  have hall : ∀ n < 256, (escape (UInt8.ofNat n)).length =
      escapeCharacters (UInt8.ofNat n) + 1 := by
    decide +kernel
  simpa using hall c.toNat c.toNat_lt

theorem length_escaped (input : List UInt8) :
    (input.flatMap escape).length = input.length + (input.map escapeCharacters).sum := by
  induction input with
  | nil => rfl
  | cons c input ih =>
      rw [List.flatMap_cons, List.length_append, ih, length_escape, List.map_cons, List.sum_cons,
        List.length_cons]
      omega

theorem escaped_eq_self {input : List UInt8} (h : (input.map escapeCharacters).sum = 0) :
    input.flatMap escape = input := by
  induction input with
  | nil => rfl
  | cons c input ih =>
      rw [List.map_cons, List.sum_cons, Nat.add_eq_zero_iff] at h
      have hlength := length_escape c
      rw [h.1] at hlength
      have hself : escape c = [c] := by
        rcases escape_cases c with ⟨-, -, heq⟩ | ⟨letter, -, heq⟩ | ⟨-, heq⟩
        · exact heq
        · rw [heq] at hlength
          cases hlength
        · rw [heq] at hlength
          cases hlength
      rw [List.flatMap_cons, hself, ih h.2, List.singleton_append]

/-- The buffer with other bytes in its memory. -/
def SameButBytes (p p' : PrintBuffer) : Prop :=
  ∃ cells : List (Option UInt8), cells.length = p.buffer.length ∧ p' = { p with buffer := cells }

theorem SameButBytes.overwrite {p p' : PrintBuffer} {index : ℕ} {bytes : List UInt8}
    (h : index + bytes.length ≤ p.buffer.length)
    (hsame : SameButBytes (p.overwrite index bytes) p') : SameButBytes p p' := by
  obtain ⟨cells, hcells, rfl⟩ := hsame
  exact ⟨cells, hcells.trans (length_overwrite h), rfl⟩

/-- A character is written as its escape, in one or two writes of which the
last may have a zero behind it. -/
theorem escapeInto_cons (c : UInt8) (input : List UInt8) :
    ∃ later : List UInt8, later.length ≤ 1 ∧ ∀ (p : PrintBuffer) (outputPointer : ℕ),
      escapeInto p outputPointer (c :: input) =
        p.write outputPointer (escape c ++ later) >>= fun p =>
          escapeInto p (outputPointer + (escape c).length) input := by
  by_cases hplain : 31 < c ∧ c ≠ quote ∧ c ≠ backslash
  · refine ⟨[], Nat.zero_le 1, fun p outputPointer => ?_⟩
    unfold escape
    rw [escapeInto, if_pos hplain, if_pos hplain]
    rfl
  · unfold escape
    rw [if_neg hplain]
    cases hletter : escapeLetter c with
    | some letter =>
        refine ⟨[], Nat.zero_le 1, fun p outputPointer => ?_⟩
        rw [escapeInto, if_neg hplain, hletter]
        dsimp only
        rw [List.append_nil, write_cons _ _ _ [letter], bind_assoc]
        rfl
    | none =>
        refine ⟨[0], le_rfl, fun p outputPointer => ?_⟩
        rw [escapeInto, if_neg hplain, hletter]
        dsimp only
        rw [List.cons_append, write_cons _ _ _ (_ ++ _), bind_assoc]
        rfl

theorem escapeInto_eq (input : List UInt8) :
    ∀ (p : PrintBuffer) (output : List UInt8), p.Begins output →
      output.length + (input.flatMap escape).length < p.buffer.length →
      ∃ p', escapeInto p output.length input = .ok p' ∧ SameButBytes p p' ∧
        p'.Begins (output ++ input.flatMap escape) := by
  induction input with
  | nil =>
      intro p output hbegins _
      rw [List.flatMap_nil, List.append_nil]
      exact ⟨p, rfl, ⟨p.buffer, rfl, rfl⟩, hbegins⟩
  | cons c input ih =>
      intro p output hbegins hroom
      obtain ⟨later, hlater, hstep⟩ := escapeInto_cons c input
      rw [List.flatMap_cons, List.length_append] at hroom
      have hfits : output.length + (escape c ++ later).length ≤ p.buffer.length := by
        rw [List.length_append]
        omega
      have hwritten := begins_overwrite hbegins (escape c ++ later)
      rw [← List.append_assoc] at hwritten
      obtain ⟨p', hinto, hsame, hbegins'⟩ := ih _ _ hwritten.of_append (by
        rw [length_overwrite hfits, List.length_append]
        omega)
      rw [List.length_append] at hinto
      rw [List.append_assoc] at hbegins'
      refine ⟨p', ?_, hsame.overwrite hfits, by rwa [List.flatMap_cons]⟩
      rw [hstep, write_eq _ _ _ hfits]
      exact hinto

theorem printStringPtr_safe (h : Ready format depth text p) (s : CString)
    (hlimit : 2 * ((text ++ stringText s).length + 2) ≤ limit) (hmax : limit ≤ sizeMax) :
    Safe (Refuses reallocate limit) (Ended format depth (text ++ stringText s))
      (printStringPtr reallocate p s) := by
  have hlength := length_escaped s.bytes
  rw [length_bytes] at hlength
  have htext : (stringText s).length = (s.bytes.flatMap escape).length + 2 := by
    simp [stringText]
  have hzero := zero_notMem_stringText s
  rw [List.length_append] at hlimit
  unfold printStringPtr
  dsimp only
  apply (ensure_safe h (by omega) hmax).bind
  rintro p₁ ⟨h₁, hroom⟩
  rw [← hlength] at hroom ⊢
  split_ifs with hescaped
  · have hself := escaped_eq_self hescaped
    have hplain : quote :: s.bytes ++ [quote, 0] = stringText s ++ [0] := by
      rw [stringText, hself]
      simp
    rw [hplain]
    exact h₁.write_ended hzero (by omega) _
  · obtain ⟨hwrite, hholds⟩ := h₁.holds_write (show (0 : UInt8) ∉ [quote] by decide) [] (by
      rw [List.length_singleton, List.length_nil]
      omega)
    rw [List.append_nil] at hwrite hholds
    have hbegins := hholds.begins
    rw [List.append_nil] at hbegins
    have hsize := length_overwrite (show text.length + [quote].length ≤ p₁.buffer.length by
      rw [List.length_singleton]
      omega)
    obtain ⟨p₂, hinto, ⟨cells, hcells, rfl⟩, hbegins₂⟩ := escapeInto_eq s.bytes _ _ hbegins (by
      rw [hsize, List.length_append, List.length_singleton]
      omega)
    rw [hsize] at hcells
    have hpointer : (text ++ [quote]).length = p₁.offset + 1 := by
      rw [List.length_append, h₁.offset_eq, List.length_singleton]
    rw [hpointer] at hinto
    rw [hwrite]
    change Safe _ _ (escapeInto _ (p₁.offset + 1) s.bytes >>= _)
    rw [hinto]
    change Safe _ _ (PrintBuffer.write _
      (p₁.offset + (s.bytes.flatMap escape).length + 1) [quote, 0])
    have hindex : p₁.offset + (s.bytes.flatMap escape).length + 1 =
        (text ++ [quote] ++ s.bytes.flatMap escape).length := by
      rw [List.length_append, hpointer]
      omega
    have hfits : (text ++ [quote] ++ s.bytes.flatMap escape).length + [quote, 0].length ≤
        cells.length := by
      rw [hcells, ← hindex, h₁.offset_eq]
      exact (by omega : text.length + (s.bytes.flatMap escape).length + 1 + 2 ≤ p₁.buffer.length)
    rw [hindex, write_eq _ _ _ hfits]
    refine ⟨⟨h₁.noalloc_eq, h₁.format_eq, h₁.depth_eq, ?_, ?_, ?_⟩, ?_⟩
    · rw [length_overwrite hfits]
      exact h₁.length_eq.trans hcells.symm
    · rw [List.mem_append, not_or]
      exact ⟨h₁.zero_notMem, hzero⟩
    · have hbegins₃ := begins_overwrite hbegins₂ [quote, 0]
      have hbytes : text ++ [quote] ++ s.bytes.flatMap escape ++ [quote, 0] =
          text ++ stringText s ++ [0] := by
        simp [stringText]
      rwa [hbytes] at hbegins₃
    · change p₁.offset ≤ _
      rw [List.length_append, h₁.offset_eq]
      exact Nat.le_add_right _ _

/-! ## Arrays and objects -/

theorem length_formatted (format : Bool) (c : UInt8) :
    (formatted format c).length = if format then 1 else 0 := by
  cases format <;> rfl

/-- A character and, in a formatted text, another one. -/
theorem length_separator (format : Bool) (c d : UInt8) :
    (c :: formatted format d).length = if format then 2 else 1 := by
  cases format <;> rfl

theorem zero_notMem_separator (format : Bool) {c d : UInt8} (hc : (0 : UInt8) ≠ c)
    (hd : (0 : UInt8) ≠ d) : (0 : UInt8) ∉ c :: formatted format d := by
  rw [List.mem_cons, not_or]
  exact ⟨hc, zero_notMem_formatted format hd⟩

theorem length_tabs (format : Bool) (depth : ℕ) :
    (tabs format depth).length = if format then depth else 0 := by
  cases format
  · rfl
  · exact List.length_replicate

/-- What is proved of every value: it is appended to the text. -/
def Printed (reallocate : ℕ → Bool) (format : Bool) (item : JsonItem) : Prop :=
  ∀ (limit depth : ℕ) (text : List UInt8) (p : PrintBuffer), Ready format depth text p →
    2 * ((text ++ valueText format depth item).length + 2) ≤ limit → limit ≤ sizeMax →
    Safe (Refuses reallocate limit) (Ended format depth (text ++ valueText format depth item))
      (printValue reallocate p item)

theorem printElements_safe (hmax : limit ≤ sizeMax) (items : List JsonItem) :
    ∀ (text : List UInt8) (p : PrintBuffer),
      (∀ item ∈ items, Printed reallocate format item) →
      Ready format (depth + 1) text p →
      2 * ((text ++ itemsText format depth items).length + 2) ≤ limit →
      Safe (Refuses reallocate limit)
        (Ready format (depth + 1) (text ++ itemsText format depth items))
        (printElements reallocate p items) := by
  induction items with
  | nil =>
      intro text p _ h _
      rw [itemsText, List.append_nil]
      exact h
  | cons item items ih =>
      intro text p hitems h hlimit
      have hitem := hitems item List.mem_cons_self
      have hlater : ∀ item ∈ items, Printed reallocate format item :=
        fun item h => hitems item (List.mem_cons_of_mem _ h)
      rw [itemsText] at hlimit ⊢
      rw [← List.append_assoc, ← List.append_assoc] at hlimit ⊢
      have hlimit₁ := hlimit
      simp only [List.length_append] at hlimit₁
      unfold printElements
      apply (hitem limit (depth + 1) text p h (by rw [List.length_append]; omega) hmax).bind
      intro p₁ h₁
      apply (h₁.updateOffset_safe _).bind
      intro p₂ h₂
      by_cases hlast : items.isEmpty = true
      · simp only [if_pos hlast, List.append_nil] at hlimit ⊢
        exact ih _ p₂ hlater h₂ hlimit
      · simp only [if_neg hlast] at hlimit hlimit₁ ⊢
        have hlength := length_separator format comma space
        have hzero := zero_notMem_separator format (show (0 : UInt8) ≠ comma by decide)
          (show (0 : UInt8) ≠ space by decide)
        rw [h₂.format_eq, ← hlength]
        apply (ensure_safe h₂ (by rw [List.length_append]; omega) hmax).bind
        rintro p₃ ⟨h₃, hroom⟩
        rw [h₃.format_eq]
        apply (h₃.write_ready hzero [0] hroom.le (by omega) _).bind
        intro p₄ h₄
        exact ih _ _ hlater h₄ hlimit

/-- What stands behind a member. -/
def memberEnd (format : Bool) (members : List (CString × JsonItem)) : List UInt8 :=
  (if members.isEmpty then [] else [comma]) ++ formatted format newline

theorem length_memberEnd (format : Bool) (members : List (CString × JsonItem)) :
    (memberEnd format members).length =
      (if format then 1 else 0) + (if members.isEmpty then 0 else 1) := by
  unfold memberEnd
  rw [List.length_append, length_formatted, Nat.add_comm]
  cases members <;> rfl

theorem zero_notMem_memberEnd (format : Bool) (members : List (CString × JsonItem)) :
    (0 : UInt8) ∉ memberEnd format members := by
  unfold memberEnd
  rw [List.mem_append, not_or]
  refine ⟨?_, zero_notMem_formatted format (by decide)⟩
  cases members
  · exact List.not_mem_nil
  · exact (by decide : (0 : UInt8) ∉ [comma])

theorem printTabs_safe (h : Ready format depth text p)
    (hlimit : 2 * ((text ++ tabs format depth).length + 2) ≤ limit) (hmax : limit ≤ sizeMax) :
    Safe (Refuses reallocate limit) (Ready format depth (text ++ tabs format depth))
      (printTabs reallocate p) := by
  have hlength := length_tabs format depth
  have hzero := zero_notMem_tabs format depth
  rw [List.length_append] at hlimit
  unfold printTabs
  rw [h.format_eq]
  cases format with
  | false =>
      rw [show tabs false depth = [] from rfl, List.append_nil]
      exact h
  | true =>
      have hlength' : (tabs true depth).length = depth := hlength
      rw [if_pos rfl, h.depth_eq]
      apply (ensure_safe h (by omega) hmax).bind
      rintro p₁ ⟨h₁, hroom⟩
      have hwritten := h₁.write_ready hzero [] (by rw [List.length_nil]; omega) (by omega)
        (Refuses reallocate limit)
      rw [List.append_nil, hlength'] at hwritten
      rw [h₁.depth_eq]
      apply hwritten.bind
      intro p₂ h₂
      have hdepth : p₂.depth = depth := h₂.depth_eq
      rw [hdepth]
      exact h₂

theorem printMembers_safe (hmax : limit ≤ sizeMax) (members : List (CString × JsonItem)) :
    ∀ (text : List UInt8) (p : PrintBuffer),
      (∀ member ∈ members, Printed reallocate format member.2) →
      Ready format depth text p →
      2 * ((text ++ membersText format depth members).length + 2) ≤ limit →
      Safe (Refuses reallocate limit)
        (Ready format depth (text ++ membersText format depth members))
        (printMembers reallocate p members) := by
  induction members with
  | nil =>
      intro text p _ h _
      rw [membersText, List.append_nil]
      exact h
  | cons member members ih =>
      intro text p hmembers h hlimit
      obtain ⟨name, item⟩ := member
      have hmember : Printed reallocate format item := hmembers (name, item) List.mem_cons_self
      have hlater : ∀ member ∈ members, Printed reallocate format member.2 :=
        fun member h => hmembers member (List.mem_cons_of_mem _ h)
      have hcolon := length_separator format colon tab
      have hcolonZero := zero_notMem_separator format (show (0 : UInt8) ≠ colon by decide)
        (show (0 : UInt8) ≠ tab by decide)
      have hend := length_memberEnd format members
      have hendZero := zero_notMem_memberEnd format members
      have htext : text ++ membersText format depth ((name, item) :: members) =
          text ++ tabs format depth ++ stringText name ++ (colon :: formatted format tab) ++
            valueText format depth item ++ memberEnd format members ++
            membersText format depth members := by
        rw [membersText, memberEnd]
        simp
      rw [htext] at hlimit ⊢
      have hlimit₁ := hlimit
      simp only [List.length_append] at hlimit₁
      unfold printMembers
      apply (printTabs_safe h (by rw [List.length_append]; omega) hmax).bind
      intro p₁ h₁
      apply (printStringPtr_safe h₁ name (by simp only [List.length_append]; omega) hmax).bind
      intro p₂ h₂
      apply (h₂.updateOffset_safe _).bind
      intro p₃ h₃
      dsimp only
      rw [h₃.format_eq, ← hcolon]
      apply (ensure_safe h₃ (by simp only [List.length_append]; omega) hmax).bind
      rintro p₄ ⟨h₄, hroom₄⟩
      have hwritten := h₄.write_ready hcolonZero [] hroom₄.le hroom₄ (Refuses reallocate limit)
      rw [List.append_nil] at hwritten
      rw [h₄.format_eq]
      apply hwritten.bind
      intro p₅ h₅
      apply (hmember limit depth _ _ h₅ (by simp only [List.length_append]; omega) hmax).bind
      intro p₆ h₆
      apply (h₆.updateOffset_safe _).bind
      intro p₇ h₇
      rw [h₇.format_eq, ← hend]
      apply (ensure_safe h₇ (by simp only [List.length_append]; omega) hmax).bind
      rintro p₈ ⟨h₈, hroom₈⟩
      rw [h₈.format_eq]
      apply (h₈.write_ready hendZero [0] hroom₈.le (by omega) _).bind
      intro p₉ h₉
      exact ih _ _ hlater h₉ hlimit

/-! ## Values -/

theorem printArray_safe {format : Bool} {child : List JsonItem}
    (hchild : ∀ item ∈ child, Printed reallocate format item) :
    Printed reallocate format (.array child) := by
  intro limit depth text p h hlimit hmax
  have hopen : (0 : UInt8) ∉ [openBracket] := by decide
  have hclose : (0 : UInt8) ∉ [closeBracket] := by decide
  have htext : text ++ valueText format depth (.array child) =
      text ++ [openBracket] ++ itemsText format depth child ++ [closeBracket] := by
    rw [valueText]
    simp
  rw [htext] at hlimit ⊢
  have hlimit₁ := hlimit
  simp only [List.length_append, List.length_singleton] at hlimit₁
  rw [printValue]
  apply (ensure_safe h (by omega) hmax).bind
  rintro p₁ ⟨h₁, hroom₁⟩
  have hwritten := h₁.write_ready hopen [] hroom₁.le hroom₁ (Refuses reallocate limit)
  rw [List.append_nil] at hwritten
  apply hwritten.bind
  intro p₂ h₂
  apply (printElements_safe hmax child _ _ hchild h₂.enter (by
    simp only [List.length_append, List.length_singleton]
    omega)).bind
  intro p₃ h₃
  apply (ensure_safe h₃ (by
    simp only [List.length_append, List.length_singleton]
    omega) hmax).bind
  rintro p₄ ⟨h₄, hroom₄⟩
  apply (h₄.write_ended hclose (by rw [List.length_singleton]; omega) _).bind
  intro p₅ h₅
  exact h₅.leave

theorem printObject_safe {format : Bool} {child : List (CString × JsonItem)}
    (hchild : ∀ member ∈ child, Printed reallocate format member.2) :
    Printed reallocate format (.object child) := by
  intro limit depth text p h hlimit hmax
  have hopen := length_separator format openBrace newline
  have hopenZero := zero_notMem_separator format (show (0 : UInt8) ≠ openBrace by decide)
    (show (0 : UInt8) ≠ newline by decide)
  have htabs := length_tabs format depth
  have hcloseZero : (0 : UInt8) ∉ tabs format depth ++ [closeBrace] := by
    rw [List.mem_append, not_or]
    exact ⟨zero_notMem_tabs format depth, by decide⟩
  have htext : text ++ valueText format depth (.object child) =
      text ++ (openBrace :: formatted format newline) ++ membersText format (depth + 1) child ++
        (tabs format depth ++ [closeBrace]) := by
    rw [valueText]
    simp
  rw [htext] at hlimit ⊢
  have hlimit₁ := hlimit
  simp only [List.length_append, List.length_singleton] at hlimit₁
  rw [printValue, h.format_eq, ← hopen]
  apply (ensure_safe h (by omega) hmax).bind
  rintro p₁ ⟨h₁, hroom₁⟩
  have hwritten := h₁.write_ready hopenZero [] (by rw [List.length_nil]; omega) (by omega)
    (Refuses reallocate limit)
  rw [List.append_nil] at hwritten
  rw [h₁.format_eq]
  apply hwritten.bind
  intro p₂ h₂
  apply (printMembers_safe hmax child _ _ hchild h₂.enter (by
    simp only [List.length_append]
    omega)).bind
  intro p₃ h₃
  have hneeded : (if format then depth + 1 + 1 else 2) =
      (tabs format depth ++ [closeBrace]).length + 1 := by
    rw [List.length_append, htabs, List.length_singleton]
    cases format <;> rfl
  rw [h₃.format_eq, h₃.depth_eq, hneeded]
  apply (ensure_safe h₃ (by
    simp only [List.length_append, List.length_singleton]
    omega) hmax).bind
  rintro p₄ ⟨h₄, hroom₄⟩
  have hclose : tabs format (depth + 1 - 1) ++ [closeBrace, 0] =
      tabs format depth ++ [closeBrace] ++ [0] := by
    simp
  rw [h₄.format_eq, h₄.depth_eq, hclose]
  apply (h₄.write_ended hcloseZero (by omega) _).bind
  intro p₅ h₅
  exact h₅.leave

theorem printValue_safe (format : Bool) (item : JsonItem) : Printed reallocate format item := by
  induction item using JsonItem.induction with
  | null =>
      intro limit depth text p h hlimit hmax
      rw [valueText] at hlimit ⊢
      rw [printValue]
      exact printWord_safe h (by decide) rfl hlimit hmax
  | bool value =>
      intro limit depth text p h hlimit hmax
      cases value
      · rw [valueText] at hlimit ⊢
        rw [printValue]
        exact printWord_safe h (by decide) rfl hlimit hmax
      · rw [valueText] at hlimit ⊢
        rw [printValue]
        exact printWord_safe h (by decide) rfl hlimit hmax
  | number d =>
      intro limit depth text p h hlimit hmax
      rw [valueText] at hlimit ⊢
      rw [printValue]
      exact printNumber_safe h d hlimit hmax
  | string s =>
      intro limit depth text p h hlimit hmax
      rw [valueText] at hlimit ⊢
      rw [printValue]
      exact printStringPtr_safe h s hlimit hmax
  | array child ih => exact printArray_safe ih
  | object child ih => exact printObject_safe ih

/-! ## The whole text -/

theorem resize_eq_take {cells : List (Option UInt8)} {size : ℕ} (h : size ≤ cells.length) :
    resize cells size = cells.take size := by
  unfold resize
  rw [Nat.sub_eq_zero_of_le h, List.replicate_zero, List.append_nil]

theorem ready_start (format : Bool) :
    Ready format 0 []
      ⟨List.replicate defaultBufferSize none, defaultBufferSize, 0, 0, false, format⟩ where
  noalloc_eq := rfl
  format_eq := rfl
  depth_eq := rfl
  length_eq := (List.length_replicate).symm
  zero_notMem := List.not_mem_nil
  begins := rfl
  offset_eq := rfl
  inside := (by decide : 0 < defaultBufferSize)

/-- The printer never leaves its memory.  It returns the text with a zero behind
it, or it fails because memory was refused for the first buffer or for at most
twice the text. -/
theorem print_safe (reallocate allocate : ℕ → Bool) (format : Bool) (item : JsonItem)
    (hmax : 2 * ((valueText format 0 item).length + 2) ≤ sizeMax) :
    Safe (allocate defaultBufferSize = false ∨
        Refuses reallocate (2 * ((valueText format 0 item).length + 2)))
      (fun cells => cells = (valueText format 0 item ++ [0]).map some)
      (print reallocate allocate format item) := by
  have hvalue : Safe (Refuses reallocate _) _ _ :=
    printValue_safe format item _ 0 [] _ (ready_start format) le_rfl hmax
  rw [List.nil_append] at hvalue
  unfold print
  split_ifs with hallocate
  · apply (hvalue.weaken Or.inr).bind
    intro p h
    have hroom := h.begins.length_le
    rw [List.length_append, List.length_singleton] at hroom
    rw [h.updateOffset_eq]
    change Safe _ _ (if reallocate ((valueText format 0 item).length + 1) then
      pure (resize p.buffer ((valueText format 0 item).length + 1)) else _)
    split_ifs with hgranted
    · have hbegins := h.begins
      unfold Begins at hbegins
      rw [List.length_append, List.length_singleton] at hbegins
      exact (resize_eq_take hroom).trans hbegins
    · exact Or.inr ⟨_, (by omega : (valueText format 0 item).length + 1 ≤ _),
        by simpa using hgranted⟩
  · exact Or.inl (by simpa using hallocate)

/-- The two ways in which printing can end. -/
theorem print_outcomes (reallocate allocate : ℕ → Bool) (format : Bool) (item : JsonItem)
    (hmax : 2 * ((valueText format 0 item).length + 2) ≤ sizeMax) :
    print reallocate allocate format item = .ok ((valueText format 0 item ++ [0]).map some) ∨
    print reallocate allocate format item = .error .refused ∧
      (allocate defaultBufferSize = false ∨
        ∃ size ≤ 2 * ((valueText format 0 item).length + 2), reallocate size = false) := by
  have hsafe := print_safe reallocate allocate format item hmax
  cases hprint : print reallocate allocate format item with
  | ok cells =>
      rw [hprint] at hsafe
      exact Or.inl (congrArg Except.ok hsafe)
  | error failure =>
      rw [hprint] at hsafe
      cases failure with
      | outside => exact absurd hsafe id
      | refused => exact Or.inr ⟨rfl, hsafe⟩

/-- A text that the first buffer has no room for. -/
def longItem : JsonItem :=
  .array [.string (CString.ofString (String.ofList (List.replicate 300 'a'))), .null]

theorem print_outcomes_grows :
    defaultBufferSize < (valueText false 0 longItem).length ∧
      print (fun _ => true) (fun _ => true) false longItem =
        .ok ((valueText false 0 longItem ++ [0]).map some) := by
  refine ⟨by decide +kernel, ?_⟩
  rcases print_outcomes (fun _ => true) (fun _ => true) false longItem (by decide +kernel) with
    hprinted | ⟨-, hrefused | ⟨size, -, hrefused⟩⟩
  · exact hprinted
  · cases hrefused
  · cases hrefused

/-- A printed text is parsed as the item with its numbers reread, unless the
item nests too deeply, when the text is refused. -/
theorem parse_print {reallocate allocate : ℕ → Bool} {format : Bool} {item : JsonItem}
    {cells : List (Option UInt8)} (hmax : 2 * ((valueText format 0 item).length + 2) ≤ sizeMax)
    (hprint : print reallocate allocate format item = .ok cells) :
    ∃ printed : CString, cells = (printed.bytes ++ [0]).map some ∧
      (item.nesting ≤ JsonItem.nestingLimit →
        JsonParser.parse printed = some (.ok item.reread)) ∧
      (JsonItem.nestingLimit < item.nesting →
        ∃ position ≤ printed.length, JsonParser.parse printed = some (.error position)) := by
  have hsafe := print_safe reallocate allocate format item hmax
  rw [hprint] at hsafe
  have hread := readText_valueText_eq format item
  have hparse := parse_eq (JsonText.text format item)
  rw [text_bytes, hread] at hparse
  unfold rereadWithin at hparse
  refine ⟨JsonText.text format item, by rw [text_bytes]; exact hsafe, fun hnesting => ?_,
    fun hnesting => ?_⟩
  · rw [if_pos hnesting] at hparse
    rcases hparse with ⟨item', hitem, hparse⟩ | ⟨hnone, -⟩
    · cases hitem
      exact hparse
    · cases hnone
  · rw [if_neg (not_le.mpr hnesting)] at hparse
    rcases hparse with ⟨item', hitem, -⟩ | ⟨-, hparse⟩
    · cases hitem
    · exact hparse

theorem printed_array :
    print (fun _ => true) (fun _ => true) false (.array [.null]) =
      .ok [some 91, some 110, some 117, some 108, some 108, some 93, some 0] := by
  decide +kernel

theorem parse_print_array :
    ∃ printed : CString, [some 91, some 110, some 117, some 108, some 108, some 93, some 0] =
        (printed.bytes ++ [0]).map some ∧
      ((JsonItem.array [.null]).nesting ≤ JsonItem.nestingLimit →
        JsonParser.parse printed = some (.ok (JsonItem.array [.null]).reread)) ∧
      (JsonItem.nestingLimit < (JsonItem.array [.null]).nesting →
        ∃ position ≤ printed.length, JsonParser.parse printed = some (.error position)) :=
  parse_print (by decide +kernel) printed_array

end JsonPrinter

end Iperf3
