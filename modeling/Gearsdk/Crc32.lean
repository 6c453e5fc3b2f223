import Mathlib.Algebra.Group.Nat.Defs
import Mathlib.Logic.Function.Iterate

/-! The reflected CRC-32 of a byte string, bit by bit: initial value and final
inversion `0xFFFFFFFF`, polynomial `0xEDB88320`. -/
namespace Crc32

def polynomial : Nat := 0xEDB88320

def mask : Nat := 0xFFFFFFFF

def shift (register : Nat) : Nat :=
  if register % 2 = 1 then (register / 2) ^^^ polynomial else register / 2

def feed (register : Nat) (byte : UInt8) : Nat :=
  Nat.iterate shift 8 (register ^^^ byte.toNat)

def checksum (bytes : List UInt8) : Nat :=
  (bytes.foldl feed mask) ^^^ mask

/-- `crc32_z`, which goes on from an earlier value. -/
def continued (crc : Nat) (bytes : List UInt8) : Nat :=
  (bytes.foldl feed (crc ^^^ mask)) ^^^ mask

theorem shift_lt (small : register < 2 ^ 32) : shift register < 2 ^ 32 := by
  have half : register / 2 < 2 ^ 32 := by omega
  rw [shift]
  split
  · exact Nat.xor_lt_two_pow half (by decide)
  · exact half

theorem feed_lt (byte : UInt8) (small : register < 2 ^ 32) : feed register byte < 2 ^ 32 := by
  have mixed : register ^^^ byte.toNat < 2 ^ 32 :=
    Nat.xor_lt_two_pow small (by have := byte.toNat_lt; omega)
  exact Function.Iterate.rec (· < 2 ^ 32) mixed (fun _ => shift_lt) 8

theorem foldl_feed_lt (small : register < 2 ^ 32) (bytes : List UInt8) :
    bytes.foldl feed register < 2 ^ 32 := by
  induction bytes generalizing register with
  | nil => exact small
  | cons byte rest ih => exact ih (feed_lt byte small)

/-- A checksum has 32 bits. -/
theorem checksum_lt (bytes : List UInt8) : checksum bytes < 2 ^ 32 :=
  Nat.xor_lt_two_pow (foldl_feed_lt (by decide) bytes) (by decide)

theorem continued_lt (small : crc < 2 ^ 32) (bytes : List UInt8) : continued crc bytes < 2 ^ 32 :=
  Nat.xor_lt_two_pow (foldl_feed_lt (Nat.xor_lt_two_pow small (by decide)) bytes) (by decide)

/-! ### Going on from an earlier value -/

theorem continued_zero (bytes : List UInt8) : continued 0 bytes = checksum bytes := by
  rw [continued, checksum, Nat.zero_xor]

theorem xor_mask_xor_mask (crc : Nat) : (crc ^^^ mask) ^^^ mask = crc := by
  rw [Nat.xor_assoc, Nat.xor_self, Nat.xor_zero]

theorem continued_nil (crc : Nat) : continued crc [] = crc := xor_mask_xor_mask crc

theorem continued_append (crc : Nat) (xs ys : List UInt8) :
    continued crc (xs ++ ys) = continued (continued crc xs) ys := by
  simp only [continued, List.foldl_append, xor_mask_xor_mask]

/-- Going on from part to part leaves the checksum of the parts run together. -/
theorem foldl_continued (parts : List (List UInt8)) (crc : Nat) :
    parts.foldl continued crc = continued crc parts.flatten := by
  induction parts generalizing crc with
  | nil => exact (continued_nil crc).symm
  | cons part rest ih => rw [List.foldl_cons, ih, List.flatten_cons, continued_append]

theorem xor_right_cancel {a b c : Nat} (same : a ^^^ c = b ^^^ c) : a = b := by
  have twice := congrArg (· ^^^ c) same
  simpa only [Nat.xor_assoc, Nat.xor_self, Nat.xor_zero] using twice

/-- The top bit of the polynomial tells whether it was added. -/
theorem shift_inj (small : a < 2 ^ 32) (small' : b < 2 ^ 32) (same : shift a = shift b) :
    a = b := by
  have low (n : Nat) (fits : n < 2 ^ 32) : (n / 2).testBit 31 = false :=
    Nat.testBit_lt_two_pow (by omega)
  have top : polynomial.testBit 31 = true := by decide
  have halves : a % 2 = b % 2 ∧ a / 2 = b / 2 := by
    simp only [shift] at same
    split at same <;> split at same
    · exact ⟨by omega, xor_right_cancel same⟩
    · have bit := congrArg (Nat.testBit · 31) same
      simp [Nat.testBit_xor, low a small, low b small', top] at bit
    · have bit := congrArg (Nat.testBit · 31) same
      simp [Nat.testBit_xor, low a small, low b small', top] at bit
    · exact ⟨by omega, same⟩
  omega

theorem feed_inj (byte : UInt8) (small : a < 2 ^ 32) (small' : b < 2 ^ 32)
    (same : feed a byte = feed b byte) :
    a = b := by
  have mixed (n : Nat) (fits : n < 2 ^ 32) : n ^^^ byte.toNat < 2 ^ 32 :=
    Nat.xor_lt_two_pow fits (by have := byte.toNat_lt; omega)
  have iterated (n : Nat) : ∀ x < 2 ^ 32, ∀ y < 2 ^ 32, Nat.iterate shift n x =
      Nat.iterate shift n y → x = y := by
    induction n with
    | zero => exact fun _ _ _ _ same => same
    | succ n ih =>
      intro x fits y fits' same
      exact shift_inj fits fits' (ih _ (shift_lt fits) _ (shift_lt fits') same)
  exact xor_right_cancel (iterated 8 _ (mixed a small) _ (mixed b small') same)

theorem foldl_feed_inj (small : a < 2 ^ 32) (small' : b < 2 ^ 32) (bytes : List UInt8)
    (same : bytes.foldl feed a = bytes.foldl feed b) : a = b := by
  induction bytes generalizing a b with
  | nil => exact same
  | cons byte rest ih =>
    exact feed_inj byte small small' (ih (feed_lt byte small) (feed_lt byte small') same)

/-- No value is lost on the way. -/
theorem continued_inj (small : a < 2 ^ 32) (small' : b < 2 ^ 32) (bytes : List UInt8) :
    continued a bytes = continued b bytes ↔ a = b := by
  constructor
  · intro same
    have fits (n : Nat) (bound : n < 2 ^ 32) : n ^^^ mask < 2 ^ 32 :=
      Nat.xor_lt_two_pow bound (by decide)
    exact xor_right_cancel (foldl_feed_inj (fits a small) (fits b small') bytes (xor_right_cancel same))
  · rintro rfl
    rfl

end Crc32
