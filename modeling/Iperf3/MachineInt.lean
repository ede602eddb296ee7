import Mathlib.Tactic

/-!
# Fixed-width integers as wrapped integers

Machine integers are kept as mathematical integers together with the two
conversions a C program performs on them: reading a value back in `w` bits as
a two's-complement number, and reading it as an unsigned number.  Values that
already fit are unchanged, and a wrapped sum or product may be wrapped once
at the end.  In network byte order a natural number is written in a fixed
number of bytes, most significant first, and read back.
-/

namespace MachineInt

/-- The value of `x` stored in a signed integer of `w` bits. -/
def signed (w : ℕ) (x : ℤ) : ℤ :=
  (x + 2 ^ (w - 1)) % 2 ^ w - 2 ^ (w - 1)

/-- The value of `x` stored in an unsigned integer of `w` bits. -/
def unsigned (w : ℕ) (x : ℤ) : ℕ :=
  (x % 2 ^ w).toNat

abbrev int32 : ℤ → ℤ := signed 32
abbrev int64 : ℤ → ℤ := signed 64
abbrev uint32 : ℤ → ℕ := unsigned 32
abbrev uint64 : ℤ → ℕ := unsigned 64

/-- The value of `x` in a signed integer of `w` bits, if it has one. -/
def checked (w : ℕ) (x : ℤ) : Option ℤ :=
  if -2 ^ (w - 1) ≤ x ∧ x < 2 ^ (w - 1) then some x else none

abbrev checked32 : ℤ → Option ℤ := checked 32
abbrev checked64 : ℤ → Option ℤ := checked 64

theorem int32_eq (x : ℤ) :
    int32 x = (x + 2147483648) % 4294967296 - 2147483648 := by
  norm_num [signed]

theorem int64_eq (x : ℤ) :
    int64 x =
      (x + 9223372036854775808) % 18446744073709551616 -
        9223372036854775808 := by
  norm_num [signed]

theorem uint32_eq (x : ℤ) : uint32 x = (x % 4294967296).toNat := by
  norm_num [unsigned]

theorem uint64_eq (x : ℤ) :
    uint64 x = (x % 18446744073709551616).toNat := by
  norm_num [unsigned]

theorem int32_of_mem {x : ℤ} (hlow : -2147483648 ≤ x)
    (hhigh : x < 2147483648) : int32 x = x := by
  rw [int32_eq]
  omega

theorem int64_of_mem {x : ℤ} (hlow : -9223372036854775808 ≤ x)
    (hhigh : x < 9223372036854775808) : int64 x = x := by
  rw [int64_eq]
  omega

theorem uint64_of_mem {x : ℤ} (hlow : 0 ≤ x)
    (hhigh : x < 18446744073709551616) : (uint64 x : ℤ) = x := by
  rw [uint64_eq]
  omega

theorem int32_bounds (x : ℤ) :
    -2147483648 ≤ int32 x ∧ int32 x < 2147483648 := by
  rw [int32_eq]
  omega

theorem uint64_lt (x : ℤ) : uint64 x < 18446744073709551616 := by
  rw [uint64_eq]
  omega

theorem int64_add_left (x y : ℤ) : int64 (int64 x + y) = int64 (x + y) := by
  rw [int64_eq, int64_eq, int64_eq]
  omega

theorem int64_int64 (x : ℤ) : int64 (int64 x) = int64 x := by
  simpa using int64_add_left x 0

theorem uint64_add_left (x y : ℤ) : uint64 (uint64 x + y) = uint64 (x + y) := by
  simp only [uint64_eq]
  omega

theorem uint64_uint64 (x : ℤ) : uint64 (uint64 x) = uint64 x := by
  simpa using uint64_add_left x 0

theorem uint64_int64 (x : ℤ) : uint64 (int64 x) = uint64 x := by
  rw [uint64_eq, uint64_eq, int64_eq]
  omega

theorem int64_uint64 (x : ℤ) : int64 (uint64 x) = int64 x := by
  have hcast : (uint64 x : ℤ) = x % 18446744073709551616 := by
    rw [uint64_eq]
    omega
  rw [hcast, int64_eq, int64_eq]
  omega

theorem int64_add_right (x y : ℤ) : int64 (x + int64 y) = int64 (x + y) := by
  rw [add_comm, int64_add_left, add_comm]

/-- A factor that has been wrapped before a wrapped product may be replaced by
its exact value. -/
theorem uint64_mul_left (x y : ℤ) : uint64 ((uint64 x : ℤ) * y) = uint64 (x * y) := by
  have hcast : (uint64 x : ℤ) = x % 18446744073709551616 := by
    rw [uint64_eq]
    omega
  rw [hcast, uint64_eq, uint64_eq, Int.mul_emod, Int.emod_emod_of_dvd _ dvd_rfl,
    ← Int.mul_emod]

theorem checked32_of_mem {x : ℤ} (hlow : -2147483648 ≤ x)
    (hhigh : x < 2147483648) : checked32 x = some x := by
  have hrange : -2 ^ (32 - 1) ≤ x ∧ x < 2 ^ (32 - 1) := by
    norm_num
    exact ⟨hlow, hhigh⟩
  exact if_pos hrange

theorem checked64_of_mem {x : ℤ} (hlow : -9223372036854775808 ≤ x)
    (hhigh : x < 9223372036854775808) : checked64 x = some x := by
  have hrange : -2 ^ (64 - 1) ≤ x ∧ x < 2 ^ (64 - 1) := by
    norm_num
    exact ⟨hlow, hhigh⟩
  exact if_pos hrange

/-- Division in a signed integer of 64 bits. -/
def quotient64 (x y : ℤ) : Option ℤ :=
  if y = 0 then none else checked64 (x.tdiv y)

/-- The remainder, which is defined where the quotient is. -/
def remainder64 (x y : ℤ) : Option ℤ :=
  (quotient64 x y).map fun _ => x.tmod y

theorem quotient64_of_nonneg
    {x y : ℤ} (hx : 0 ≤ x) (hy : 0 < y) (hfits : x / y < 9223372036854775808) :
    quotient64 x y = some (x / y) := by
  have hnonneg := Int.ediv_nonneg hx hy.le
  unfold quotient64
  rw [if_neg hy.ne', Int.tdiv_eq_ediv_of_nonneg hx]
  exact checked64_of_mem (by omega) hfits

theorem remainder64_of_nonneg
    {x y : ℤ} (hx : 0 ≤ x) (hy : 0 < y) (hfits : x / y < 9223372036854775808) :
    remainder64 x y = some (x % y) := by
  unfold remainder64
  rw [quotient64_of_nonneg hx hy hfits, Option.map_some, Int.tmod_eq_emod_of_nonneg hx]

end MachineInt

/-! ## Numbers in network byte order -/

namespace BigEndian

/-- The last `width` bytes of `x`. -/
def encode : ℕ → ℕ → List UInt8
  | 0, _ => []
  | width + 1, x => encode width (x / 256) ++ [UInt8.ofNat x]

def decode (bytes : List UInt8) : ℕ :=
  bytes.foldl (fun x byte => x * 256 + byte.toNat) 0

@[simp]
theorem length_encode (width x : ℕ) : (encode width x).length = width := by
  induction width generalizing x with
  | zero => rfl
  | succ width ih => simp [encode, ih]

theorem decode_concat (bytes : List UInt8) (byte : UInt8) :
    decode (bytes ++ [byte]) = decode bytes * 256 + byte.toNat := by
  simp [decode]

theorem decode_encode {width x : ℕ} (hx : x < 256 ^ width) :
    decode (encode width x) = x := by
  induction width generalizing x with
  | zero =>
      have hzero : x = 0 := by simpa using hx
      rw [hzero]
      rfl
  | succ width ih =>
      have hhigh : x / 256 < 256 ^ width := by
        rw [Nat.div_lt_iff_lt_mul (by norm_num), ← pow_succ]
        exact hx
      rw [encode, decode_concat, ih hhigh, UInt8.toNat_ofNat']
      omega

/-- Only the bytes that are written count. -/
theorem encode_mod (width x : ℕ) : encode width (x % 256 ^ width) = encode width x := by
  induction width generalizing x with
  | zero => rfl
  | succ width ih =>
      have hhigh : x % 256 ^ (width + 1) / 256 = x / 256 % 256 ^ width := by
        rw [pow_succ', Nat.mod_mul_right_div_self]
      have hlow : UInt8.ofNat (x % 256 ^ (width + 1)) = UInt8.ofNat x := by
        rw [← UInt8.toNat_inj, UInt8.toNat_ofNat', UInt8.toNat_ofNat', pow_succ',
          Nat.mod_mul_right_mod]
      rw [encode, encode, hhigh, hlow, ih]

end BigEndian
