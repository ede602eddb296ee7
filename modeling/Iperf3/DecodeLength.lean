import Iperf3.Base64
import Iperf3.MachineInt
import Mathlib.Tactic

/-!
# The buffer of a decoded token

`calcDecodeLength` and the buffer of `Base64Decode`.  Lengths are of type
`size_t` until the result is stored in an `int`.
-/

namespace Iperf3

open MachineInt

namespace Base64

/-- The two widths of `size_t`. -/
inductive SizeT where
  | bits32
  | bits64
  deriving DecidableEq, Repr

def SizeT.bits : SizeT → ℕ
  | .bits32 => 32
  | .bits64 => 64

/-- The characters of padding that `calcDecodeLength` looks at. -/
def paddingLength (b64input : CString) : ℕ :=
  let len := b64input.length
  if 2 ≤ len ∧ b64input[len - 1]? = some pad ∧ b64input[len - 2]? = some pad then 2
  else if 1 ≤ len ∧ b64input[len - 1]? = some pad then 1
  else 0

def calcDecodeLength (w : SizeT) (b64input : CString) : ℕ :=
  unsigned w.bits ((unsigned w.bits (b64input.length * 3) / 4 : ℕ) - paddingLength b64input)

/-- `decodeLen`, an `int`. -/
def decodeLen (w : SizeT) (b64message : CString) : ℤ :=
  int32 (calcDecodeLength w b64message)

/-- Three bytes for four characters, less the padding.  It is an assumption that
`BIO_read` returns no more. -/
def bioReadLimit (b64message : CString) : ℕ :=
  b64message.length * 3 / 4 - paddingLength b64message

/-- The indices of the buffer that `Base64Decode` writes when `BIO_read`
returns `length`: the terminator, and what has been read. -/
def writes (w : SizeT) (b64message : CString) (length : ℕ) : Set ℤ :=
  {x | x = decodeLen w b64message ∨ 0 ≤ x ∧ x < length}

/-- The length is one, covers what can be read, and every write is inside of
the `decodeLen + 1` bytes that are allocated. -/
structure StaysInAllocation (w : SizeT) (b64message : CString) : Prop where
  nonneg : 0 ≤ decodeLen w b64message
  covers : ∀ length : ℕ, length ≤ bioReadLimit b64message → length ≤ decodeLen w b64message
  inside : ∀ length : ℕ, length ≤ bioReadLimit b64message →
    ∀ x ∈ writes w b64message length, 0 ≤ x ∧ x < decodeLen w b64message + 1

theorem paddingLength_le (token : CString) : paddingLength token ≤ 2 := by
  unfold paddingLength
  dsimp only
  split_ifs <;> omega

theorem unsigned_bits (w : SizeT) {n : ℕ} (hn : n < 2147483648) :
    unsigned w.bits (n : ℤ) = n := by
  cases w with
  | bits32 =>
      change uint32 (n : ℤ) = n
      rw [uint32_eq]
      omega
  | bits64 =>
      change uint64 (n : ℤ) = n
      rw [uint64_eq]
      omega

theorem int32_unsigned_bits (w : SizeT) {x : ℤ} (hlow : -2147483648 ≤ x)
    (hhigh : x < 2147483648) : int32 (unsigned w.bits x) = x := by
  cases w with
  | bits32 =>
      change int32 (uint32 x) = x
      rw [uint32_eq, int32_eq]
      omega
  | bits64 =>
      change int32 (uint64 x) = x
      rw [uint64_eq, int32_eq]
      omega

theorem decodeLen_eq (w : SizeT) {token : CString} (hlength : token.length < 536870912) :
    decodeLen w token = (token.length * 3 / 4 : ℕ) - paddingLength token := by
  have hpadding := paddingLength_le token
  have hproduct : unsigned w.bits (token.length * 3) = token.length * 3 := by
    have hsmall := unsigned_bits w (show token.length * 3 < 2147483648 by omega)
    rwa [Nat.cast_mul] at hsmall
  unfold decodeLen calcDecodeLength
  rw [hproduct]
  exact int32_unsigned_bits w (by omega) (by omega)

theorem paddingLength_one (c : CChar) : paddingLength [c] = if c = pad then 1 else 0 := by
  simp [paddingLength]

theorem paddingLength_two (c d : CChar) :
    paddingLength [c, d] = if d = pad ∧ c = pad then 2 else if d = pad then 1 else 0 := by
  simp [paddingLength]

/-- Only two tokens have more padding than three quarters of their length. -/
theorem padding_fits_iff (token : CString) :
    paddingLength token ≤ token.length * 3 / 4 ↔ token ≠ [pad] ∧ token ≠ [pad, pad] := by
  match token with
  | [] => simp [paddingLength]
  | [c] =>
      rw [paddingLength_one]
      split_ifs with hc <;> simp [hc]
  | [c, d] =>
      rw [paddingLength_two]
      split_ifs with hboth hlast
      · simp [hboth.1, hboth.2]
      · simp only [List.length_cons, List.length_nil]
        have hc : c ≠ pad := fun hc => hboth ⟨hlast, hc⟩
        simp [hc]
      · simp [hlast]
  | c :: d :: e :: rest =>
      have hpadding := paddingLength_le (c :: d :: e :: rest)
      refine iff_of_true ?_ (by simp)
      simp only [List.length_cons]
      omega

theorem paddingLength_append (front : CString) {last : CString} (hlast : 2 ≤ last.length) :
    paddingLength (front ++ last) = paddingLength last := by
  have hlength : (front ++ last).length = front.length + last.length := List.length_append
  have hone : (front ++ last)[(front ++ last).length - 1]? = last[last.length - 1]? := by
    rw [List.getElem?_append_right (by omega)]
    congr 1
    omega
  have htwo : (front ++ last)[(front ++ last).length - 2]? = last[last.length - 2]? := by
    rw [List.getElem?_append_right (by omega)]
    congr 1
    omega
  have hlong : 2 ≤ (front ++ last).length := by omega
  unfold paddingLength
  dsimp only
  rw [hone, htwo]
  simp only [hlong, hlast, true_and, (by omega : 1 ≤ (front ++ last).length),
    (by omega : 1 ≤ last.length)]

theorem paddingLength_le_length (token : CString) : paddingLength token ≤ token.length := by
  unfold paddingLength
  dsimp only
  split_ifs <;> omega

/-- A decoder of whole groups gives three bytes for four characters that are
not padding. -/
theorem length_decode (token : CString) :
    4 * (decode token).length + 3 * paddingLength token ≤ 3 * token.length := by
  induction token using decode.induct with
  | case1 a b d rest =>
      have hpadding := paddingLength_le (a :: b :: pad :: d :: rest)
      simp only [decode, if_true, List.length_cons, List.length_nil]
      omega
  | case2 a b c rest hc =>
      simp only [decode, if_neg hc, if_true, List.length_cons, List.length_nil]
      cases rest with
      | nil =>
          have hend := paddingLength_append [a, b] (show 2 ≤ [c, pad].length from le_rfl)
          rw [paddingLength_two, if_neg (by simp [hc]), if_pos rfl] at hend
          change paddingLength [a, b, c, pad] = 1 at hend
          rw [hend]
          decide
      | cons e rest =>
          have hpadding := paddingLength_le (a :: b :: c :: pad :: e :: rest)
          simp only [List.length_cons]
          omega
  | case3 a b c d rest hc hd ih =>
      simp only [decode, if_neg hc, if_neg hd, List.length_cons]
      cases rest with
      | nil =>
          have hend := paddingLength_append [a, b] (show 2 ≤ [c, d].length from le_rfl)
          rw [paddingLength_two, if_neg (by simp [hd]), if_neg hd] at hend
          change paddingLength [a, b, c, d] = 0 at hend
          rw [hend]
          decide
      | cons e rest =>
          cases rest with
          | nil =>
              have hend := paddingLength_append [a, b, c] (show 2 ≤ [d, e].length from le_rfl)
              change paddingLength [a, b, c, d, e] = _ at hend
              have hnone : (decode [e]).length = 0 := rfl
              rw [hend, hnone, paddingLength_two, if_neg (by simp [hd])]
              split_ifs <;> simp
          | cons f rest =>
              have htwo : 2 ≤ (e :: f :: rest).length := by simp
              have hend := paddingLength_append [a, b, c, d] htwo
              change paddingLength (a :: b :: c :: d :: e :: f :: rest) = _ at hend
              rw [hend]
              simp only [List.length_cons] at ih ⊢
              omega
  | case4 token hshort =>
      have hpadding := paddingLength_le_length token
      have hnone : decode token = [] := by
        unfold decode
        split
        · exact absurd rfl (hshort _ _ _ _ _)
        · rfl
      rw [hnone, List.length_nil]
      omega

/-- What it gives fits into the allocation, though it may be one byte longer
than the length where padding follows whole groups. -/
theorem decode_fits (w : SizeT) {token : CString} (hlength : token.length < 536870912) :
    (decode token).length ≤ decodeLen w token + 1 := by
  have hdecode := length_decode token
  have hpadding := paddingLength_le token
  rw [decodeLen_eq w hlength]
  omega

/-- Decoding stays in its buffer exactly for tokens that are not one or two
characters of padding. -/
theorem stays_in_allocation_iff
    (w : SizeT) {token : CString} (hlength : token.length < 2 ^ 29) :
    StaysInAllocation w token ↔ token ≠ [pad] ∧ token ≠ [pad, pad] := by
  have hlen := decodeLen_eq w (show token.length < 536870912 by omega)
  rw [← padding_fits_iff]
  constructor
  · intro h
    have hnonneg := h.nonneg
    rw [hlen] at hnonneg
    omega
  · intro hfits
    have hlimit : decodeLen w token = bioReadLimit token := by
      rw [hlen, bioReadLimit]
      omega
    refine ⟨by omega, fun length h => by omega, ?_⟩
    intro length h x hx
    have hcases : x = decodeLen w token ∨ 0 ≤ x ∧ x < length := hx
    omega

/-- A token of the base64 filter itself. -/
theorem stays_in_allocation_example :
    StaysInAllocation .bits64 (encode [0x54, 0x68, 0x69, 0x73]) := by
  refine (stays_in_allocation_iff .bits64 ?_).mpr ?_ <;> decide

/-- One character of padding is decoded to the length -1: nothing is
allocated, and the terminator is written in front of the buffer. -/
theorem decode_length_negative :
    decodeLen .bits64 [pad] = -1 ∧ decodeLen .bits64 [pad, pad] = -1 ∧
      -1 ∈ writes .bits64 [pad] 0 ∧ [pad].length < 2 ^ 29 ∧
      ¬ StaysInAllocation .bits64 [pad] := by
  have hone : decodeLen .bits64 [pad] = -1 := by decide
  refine ⟨hone, by decide, Or.inl hone.symm, by decide, fun h => ?_⟩
  have hnonneg := h.nonneg
  rw [hone] at hnonneg
  omega

end Base64

end Iperf3
