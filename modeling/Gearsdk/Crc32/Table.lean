import Gearsdk.Crc32

/-! The reflected CRC-32 a byte at a time, by a table of what eight shifts make of a byte. -/
namespace Crc32

/-- What eight shifts make of every byte. -/
def byteTable : List Nat := (List.range 256).map (Nat.iterate shift 8)

def lookUp (table : List Nat) (register : Nat) (byte : UInt8) : Nat :=
  table.getD ((register ^^^ byte.toNat) &&& 0xFF) 0 ^^^ (register >>> 8)

/-- A shift is linear over the field of two elements. -/
theorem shift_xor (a b : Nat) : shift (a ^^^ b) = shift a ^^^ shift b := by
  have parity : (a ^^^ b) % 2 = 1 ↔ ¬ (a % 2 = 1 ↔ b % 2 = 1) := Nat.xor_mod_two_eq_one
  simp only [shift, Nat.xor_div_two]
  by_cases odd : a % 2 = 1 <;> by_cases odd' : b % 2 = 1
  · rw [if_neg fun one => parity.mp one (iff_of_true odd odd'), if_pos odd, if_pos odd',
      Nat.xor_comm (b / 2), ← Nat.xor_assoc, Nat.xor_assoc (a / 2), Nat.xor_self, Nat.xor_zero]
  · rw [if_pos (parity.mpr fun same => odd' (same.mp odd)), if_pos odd, if_neg odd', Nat.xor_assoc,
      Nat.xor_assoc, Nat.xor_comm (b / 2)]
  · rw [if_pos (parity.mpr fun same => odd (same.mpr odd')), if_neg odd, if_pos odd', Nat.xor_assoc]
  · rw [if_neg fun one => parity.mp one (iff_of_false odd odd'), if_neg odd, if_neg odd']

theorem iterate_shift_xor (n a b : Nat) :
    Nat.iterate shift n (a ^^^ b) = Nat.iterate shift n a ^^^ Nat.iterate shift n b := by
  induction n generalizing a b with
  | zero => rfl
  | succ n ih => rw [Function.iterate_succ_apply, shift_xor, ih, Function.iterate_succ_apply,
    Function.iterate_succ_apply]

/-- Nothing is added while zeros are shifted out. -/
theorem iterate_shift_high (n high : Nat) : Nat.iterate shift n (2 ^ n * high) = high := by
  induction n with
  | zero => exact Nat.one_mul high
  | succ n ih =>
    have even : shift (2 ^ (n + 1) * high) = 2 ^ n * high := by
      have twice : 2 ^ (n + 1) * high = 2 * (2 ^ n * high) := by rw [Nat.pow_succ', Nat.mul_assoc]
      rw [twice, shift, if_neg (by omega)]
      omega
    rw [Function.iterate_succ_apply, even, ih]

theorem low_xor_high (n : Nat) : (n &&& 0xFF) ^^^ 2 ^ 8 * (n >>> 8) = n := by
  refine Nat.eq_of_testBit_eq fun i => ?_
  rw [show (0xFF : Nat) = 2 ^ 8 - 1 from rfl, Nat.and_two_pow_sub_one_eq_mod, Nat.testBit_xor,
    Nat.testBit_mod_two_pow, Nat.testBit_two_pow_mul, Nat.testBit_shiftRight]
  by_cases low : i < 8
  · simp [low, Nat.not_le.mpr low]
  · simp [low, Nat.not_lt.mp low]

theorem byteTable_entry (inside : i < 256) : byteTable.getD i 0 = Nat.iterate shift 8 i := by
  rw [byteTable, List.getD_eq_getElem?_getD, List.getElem?_map, List.getElem?_range inside,
    Option.map_some, Option.getD_some]

/-- The low byte goes through the table, the bytes above it move down. -/
theorem lookUp_eq (register : Nat) (byte : UInt8) :
    lookUp byteTable register byte = feed register byte := by
  have small : (register ^^^ byte.toNat) &&& 0xFF < 256 := Nat.and_lt_two_pow _ (n := 8) (by decide)
  have above : (register ^^^ byte.toNat) >>> 8 = register >>> 8 := by
    rw [Nat.shiftRight_xor_distrib, Nat.shiftRight_eq_div_pow byte.toNat,
      Nat.div_eq_of_lt byte.toNat_lt, Nat.xor_zero]
  calc lookUp byteTable register byte
    _ = Nat.iterate shift 8 ((register ^^^ byte.toNat) &&& 0xFF) ^^^ (register >>> 8) := by
      rw [lookUp, byteTable_entry small]
    _ = Nat.iterate shift 8 ((register ^^^ byte.toNat) &&& 0xFF) ^^^
          Nat.iterate shift 8 (2 ^ 8 * ((register ^^^ byte.toNat) >>> 8)) := by
            rw [iterate_shift_high, above]
    _ = feed register byte := by rw [← iterate_shift_xor, low_xor_high, feed]

end Crc32
