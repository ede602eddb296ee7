import Mathlib.Tactic

/-!
# C strings

The characters before the terminating zero.  A pointer into a string is the
part of the string from there on.
-/

namespace Iperf3

/-- A byte of a string; the terminating zero is none. -/
def CChar : Type :=
  {c : UInt8 // c ≠ 0}

abbrev CString : Type :=
  List CChar

namespace CChar

instance : DecidableEq CChar :=
  inferInstanceAs (DecidableEq {c : UInt8 // c ≠ 0})

/-- The character as an `unsigned char`. -/
def code (c : CChar) : ℕ :=
  c.val.toNat

/-- The character that a letter, digit or sign is. -/
def char (c : CChar) : Char :=
  Char.ofNat c.code

/-- The character in lower case. -/
def lower (c : CChar) : Char :=
  c.char.toLower

def byte (c : CChar) : UInt8 :=
  c.val

def ofChar (c : Char) (h : UInt8.ofNat c.toNat ≠ 0) : CChar :=
  ⟨UInt8.ofNat c.toNat, h⟩

/-- A property of all 256 bytes is one of all characters. -/
theorem forall_char {P : Char → Prop} (h : ∀ n < 256, P (Char.ofNat n)) (c : CChar) : P c.char :=
  h _ c.val.toNat_lt

end CChar

namespace CString

def ofString (s : String) : CString :=
  s.toList.filterMap fun c =>
    if h : UInt8.ofNat c.toNat ≠ 0 then some (CChar.ofChar c h) else none

def bytes (s : CString) : List UInt8 :=
  s.map CChar.byte

/-- The string in a buffer: what stands before the first zero. -/
def ofBytes : List UInt8 → CString
  | [] => []
  | byte :: rest => if h : byte ≠ 0 then (⟨byte, h⟩ : CChar) :: ofBytes rest else []

theorem ofBytes_cons {byte : UInt8} (h : byte ≠ 0) :
    ∃ c : CChar, ∀ rest, ofBytes (byte :: rest) = c :: ofBytes rest :=
  ⟨⟨byte, h⟩, fun rest => by rw [ofBytes, dif_pos h]⟩

theorem ofBytes_bytes (s : CString) : ofBytes s.bytes = s := by
  induction s with
  | nil => rfl
  | cons c s ih =>
      change ofBytes (c.byte :: bytes s) = c :: s
      have hc : c.byte ≠ 0 := c.property
      rw [ofBytes, dif_pos hc, ih]
      rfl

/-- The string from the first occurrence of the character on. -/
def strchr (s : CString) (c : CChar) : Option CString :=
  match s with
  | [] => none
  | d :: rest => if d = c then some s else strchr rest c

theorem strchr_eq_none_iff {s : CString} {c : CChar} : s.strchr c = none ↔ c ∉ s := by
  induction s with
  | nil => simp [strchr]
  | cons d rest ih =>
      unfold strchr
      split_ifs with h
      · simp [h]
      · rw [ih, List.mem_cons, not_or]
        exact ⟨fun hrest => ⟨fun heq => h heq.symm, hrest⟩, fun hboth => hboth.2⟩

theorem strchr_append {front : CString} {c : CChar} (h : c ∉ front) (rest : CString) :
    strchr (front ++ c :: rest) c = some (c :: rest) := by
  induction front with
  | nil => exact if_pos rfl
  | cons d front ih =>
      rw [List.mem_cons, not_or] at h
      have hdc : ¬ d = c := fun heq => h.1 heq.symm
      exact (if_neg hdc).trans (ih h.2)

end CString

end Iperf3
