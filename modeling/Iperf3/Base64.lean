import Iperf3.CString

/-!
# Base64 on one line

Three bytes become four characters, and a last group that is not full is
padded.  The decoder takes whole groups and stops at the padding.
-/

namespace Iperf3

namespace Base64

def alphabet : CString :=
  CString.ofString "ABCDEFGHIJKLMNOPQRSTUVWXYZabcdefghijklmnopqrstuvwxyz0123456789+/"

def pad : CChar :=
  CChar.ofChar '=' (by decide)

def symbol (v : ℕ) : CChar :=
  alphabet.getD v pad

def valueOf (c : CChar) : ℕ :=
  alphabet.idxOf c

def encode : List UInt8 → CString
  | [] => []
  | [a] => [symbol (a.toNat / 4), symbol (a.toNat % 4 * 16), pad, pad]
  | [a, b] =>
      [symbol (a.toNat / 4), symbol (a.toNat % 4 * 16 + b.toNat / 16),
        symbol (b.toNat % 16 * 4), pad]
  | a :: b :: c :: rest =>
      symbol (a.toNat / 4) :: symbol (a.toNat % 4 * 16 + b.toNat / 16) ::
        symbol (b.toNat % 16 * 4 + c.toNat / 64) :: symbol (c.toNat % 64) :: encode rest

def firstByte (v w : ℕ) : UInt8 :=
  UInt8.ofNat (v * 4 + w / 16)

def secondByte (v w : ℕ) : UInt8 :=
  UInt8.ofNat (v % 16 * 16 + w / 4)

def thirdByte (v w : ℕ) : UInt8 :=
  UInt8.ofNat (v % 4 * 64 + w)

def decode : CString → List UInt8
  | a :: b :: c :: d :: rest =>
      if c = pad then [firstByte (valueOf a) (valueOf b)]
      else if d = pad then
        [firstByte (valueOf a) (valueOf b), secondByte (valueOf b) (valueOf c)]
      else
        firstByte (valueOf a) (valueOf b) :: secondByte (valueOf b) (valueOf c) ::
          thirdByte (valueOf c) (valueOf d) :: decode rest
  | _ => []

theorem symbol_spec {v : ℕ} (hv : v < 64) : valueOf (symbol v) = v ∧ symbol v ≠ pad := by
  have hall : ∀ v < 64, valueOf (symbol v) = v ∧ symbol v ≠ pad := by
    decide +kernel
  exact hall v hv

theorem ofNat_of_eq {a : UInt8} {n : ℕ} (h : n = a.toNat) : UInt8.ofNat n = a := by
  rw [h]
  exact UInt8.ofNat_toNat

theorem decode_encode (bytes : List UInt8) : decode (encode bytes) = bytes := by
  induction bytes using encode.induct with
  | case1 => rfl
  | case2 a =>
      have ha := a.toNat_lt
      have h1 := symbol_spec (show a.toNat / 4 < 64 by omega)
      have h2 := symbol_spec (show a.toNat % 4 * 16 < 64 by omega)
      have hfirst : firstByte (a.toNat / 4) (a.toNat % 4 * 16) = a :=
        ofNat_of_eq (by omega)
      simp [encode, decode, h1.1, h2.1, hfirst]
  | case3 a b =>
      have ha := a.toNat_lt
      have hb := b.toNat_lt
      have h1 := symbol_spec (show a.toNat / 4 < 64 by omega)
      have h2 := symbol_spec (show a.toNat % 4 * 16 + b.toNat / 16 < 64 by omega)
      have h3 := symbol_spec (show b.toNat % 16 * 4 < 64 by omega)
      have hfirst : firstByte (a.toNat / 4) (a.toNat % 4 * 16 + b.toNat / 16) = a :=
        ofNat_of_eq (by omega)
      have hsecond : secondByte (a.toNat % 4 * 16 + b.toNat / 16) (b.toNat % 16 * 4) = b :=
        ofNat_of_eq (by omega)
      simp [encode, decode, h1.1, h2.1, h3.1, h3.2, hfirst, hsecond]
  | case4 a b c rest ih =>
      have ha := a.toNat_lt
      have hb := b.toNat_lt
      have hc := c.toNat_lt
      have h1 := symbol_spec (show a.toNat / 4 < 64 by omega)
      have h2 := symbol_spec (show a.toNat % 4 * 16 + b.toNat / 16 < 64 by omega)
      have h3 := symbol_spec (show b.toNat % 16 * 4 + c.toNat / 64 < 64 by omega)
      have h4 := symbol_spec (show c.toNat % 64 < 64 by omega)
      have hfirst : firstByte (a.toNat / 4) (a.toNat % 4 * 16 + b.toNat / 16) = a :=
        ofNat_of_eq (by omega)
      have hsecond : secondByte (a.toNat % 4 * 16 + b.toNat / 16)
          (b.toNat % 16 * 4 + c.toNat / 64) = b :=
        ofNat_of_eq (by omega)
      have hthird : thirdByte (b.toNat % 16 * 4 + c.toNat / 64) (c.toNat % 64) = c :=
        ofNat_of_eq (by omega)
      simp [encode, decode, h1.1, h2.1, h3.1, h3.2, h4.1, h4.2, hfirst, hsecond, hthird, ih]

end Base64

end Iperf3
