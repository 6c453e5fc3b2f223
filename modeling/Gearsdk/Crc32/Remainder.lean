import Gearsdk.Crc32
import Mathlib.Algebra.CharP.Two
import Mathlib.Algebra.Field.ZMod
import Mathlib.RingTheory.AdjoinRoot

/-! The CRC-32 as the remainder of a polynomial over the field of two elements, divided by
the generator. The lowest bit of a register stands for the highest power. -/
namespace Crc32
open Polynomial

noncomputable section

def ofRegister (register : Nat) : (ZMod 2)[X] :=
  ∑ i ∈ Finset.range 32, if register.testBit i then X ^ (31 - i) else 0

/-- The polynomial that messages are divided by. -/
def generator : (ZMod 2)[X] := X ^ 32 + ofRegister polynomial

/-- The polynomial of a message: every byte moves what stands before it, at first the initial
value, to higher powers. -/
def message (bytes : List UInt8) : (ZMod 2)[X] :=
  bytes.foldl (fun dividend byte => X ^ 8 * (dividend + ofRegister byte.toNat)) (ofRegister mask)

theorem ofRegister_xor (a b : Nat) : ofRegister (a ^^^ b) = ofRegister a + ofRegister b := by
  rw [ofRegister, ofRegister, ofRegister, ← Finset.sum_add_distrib]
  refine Finset.sum_congr rfl fun i _ => ?_
  rw [Nat.testBit_xor]
  cases a.testBit i <;> cases b.testBit i <;> simp [CharTwo.add_self_eq_zero]

theorem coeff_ofRegister (register : Nat) (i : Nat) (inside : i < 32) :
    (ofRegister register).coeff (31 - i) = if register.testBit i then 1 else 0 := by
  rw [ofRegister, finsetSum_coeff, Finset.sum_eq_single_of_mem i (Finset.mem_range.mpr inside)]
  · split
    · rw [coeff_X_pow, if_pos rfl]
    · rw [coeff_zero]
  · intro j member other
    have below := Finset.mem_range.mp member
    split
    · rw [coeff_X_pow, if_neg (by omega)]
    · rw [coeff_zero]

theorem degree_ofRegister (register : Nat) : (ofRegister register).degree < (32 : ℕ) := by
  rw [degree_lt_iff_coeff_zero]
  intro m high
  rw [ofRegister, finsetSum_coeff]
  refine Finset.sum_eq_zero fun i _ => ?_
  split
  · rw [coeff_X_pow, if_neg (by omega)]
  · rw [coeff_zero]

/-- A register of 32 bits is told by its polynomial. -/
theorem ofRegister_eq_zero (small : register < 2 ^ 32) (zero : ofRegister register = 0) :
    register = 0 := by
  refine Nat.eq_of_testBit_eq fun i => ?_
  rw [Nat.zero_testBit]
  by_cases inside : i < 32
  · have bit := coeff_ofRegister register i inside
    rw [zero, coeff_zero] at bit
    split at bit
    · exact absurd bit (by decide)
    · simpa using ‹¬ register.testBit i = true›
  · exact Nat.testBit_lt_two_pow (small.trans_le (Nat.pow_le_pow_right (by decide) (by omega)))

/-- A step multiplies by the variable and takes the generator off what gets too high. -/
theorem ofRegister_shift (small : register < 2 ^ 32) :
    X * ofRegister register = ofRegister (shift register) + if register % 2 = 1 then generator
      else 0 := by
  have high : ofRegister (register / 2) =
      ∑ i ∈ Finset.range 31, if register.testBit (i + 1) then X ^ (31 - i) else 0 := by
    have top : register.testBit (31 + 1) = false := Nat.testBit_lt_two_pow small
    simp only [ofRegister, Nat.testBit_div_two]
    rw [Finset.sum_range_succ, top, if_neg Bool.false_ne_true, add_zero]
  have halved : X * ofRegister register = ofRegister (register / 2) + if register % 2 =
      1 then X ^ 32 else 0 := by
    rw [high, ofRegister, Finset.mul_sum, Finset.sum_range_succ', Nat.testBit_zero]
    simp only [mul_ite, mul_zero, ← pow_succ', decide_eq_true_eq]
    refine congrArg (· + _) (Finset.sum_congr rfl fun i member => ?_)
    have below := Finset.mem_range.mp member
    rw [show 31 - (i + 1) + 1 = 31 - i by omega]
  rw [halved, shift]
  split
  · rw [ofRegister_xor, generator, add_comm (X ^ 32), ← add_assoc,
      add_assoc (ofRegister (register / 2)), CharTwo.add_self_eq_zero, add_zero]
  · rfl

/-! ### Registers in the quotient by the generator -/

/-- The remainder that a register stands for. -/
def remainder (register : Nat) : AdjoinRoot generator :=
  AdjoinRoot.mk generator (ofRegister register)

theorem remainder_xor (a b : Nat) : remainder (a ^^^ b) = remainder a + remainder b := by
  rw [remainder, ofRegister_xor, map_add]
  rfl

theorem remainder_shift (small : register < 2 ^ 32) :
    remainder (shift register) = AdjoinRoot.root generator * remainder register := by
  rw [← AdjoinRoot.mk_X, remainder, remainder, ← map_mul, ofRegister_shift small, map_add]
  split
  · rw [AdjoinRoot.mk_self, add_zero]
  · rw [map_zero, add_zero]

theorem remainder_feed (byte : UInt8) (small : register < 2 ^ 32) :
    remainder (feed register byte) = AdjoinRoot.root generator ^ 8 *
      (remainder register + remainder byte.toNat) := by
  have iterated (n : Nat) : ∀ register < 2 ^ 32,
      remainder (Nat.iterate shift n register) = AdjoinRoot.root generator ^ n * remainder register := by
    induction n with
    | zero => simp
    | succ n ih =>
      intro register small
      rw [Function.iterate_succ_apply, ih _ (shift_lt small), remainder_shift small, ← mul_assoc,
        ← pow_succ]
  have mixed : register ^^^ byte.toNat < 2 ^ 32 :=
    Nat.xor_lt_two_pow small (by have := byte.toNat_lt; omega)
  rw [feed, iterated 8 _ mixed, remainder_xor]

/-- Feeding the bytes of a message leaves its remainder. -/
theorem remainder_message (bytes : List UInt8) :
    remainder (bytes.foldl feed mask) = AdjoinRoot.mk generator (message bytes) := by
  have along : ∀ (register : Nat) (dividend : (ZMod 2)[X]), register < 2 ^ 32 →
      remainder register = AdjoinRoot.mk generator dividend →
      remainder (bytes.foldl feed register) = AdjoinRoot.mk generator
        (bytes.foldl (fun dividend byte => X ^ 8 * (dividend + ofRegister byte.toNat)) dividend) := by
    induction bytes with
    | nil => exact fun _ _ _ same => same
    | cons byte rest ih =>
      intro register dividend small same
      refine ih _ _ (feed_lt byte small) ?_
      rw [remainder_feed byte small, same, map_mul, map_pow, map_add, AdjoinRoot.mk_X]
      rfl
  exact along mask (ofRegister mask) (by decide) rfl

theorem degree_generator : generator.degree = (32 : ℕ) := by
  have below : (ofRegister polynomial).degree < (X ^ 32 : (ZMod 2)[X]).degree := by
    rw [degree_X_pow]
    exact degree_ofRegister polynomial
  rw [generator, degree_add_eq_left_of_degree_lt below, degree_X_pow]

theorem monic_generator : generator.Monic := monic_X_pow_add (degree_ofRegister polynomial)

/-- A register is its own remainder. -/
theorem remainder_inj (small : a < 2 ^ 32) (small' : b < 2 ^ 32) :
    remainder a = remainder b ↔ a = b := by
  constructor
  · intro same
    have divides : generator ∣ ofRegister (a ^^^ b) := by
      rw [ofRegister_xor, ← CharTwo.sub_eq_add]
      exact AdjoinRoot.mk_eq_mk.mp same
    have short : (ofRegister (a ^^^ b)).degree < generator.degree := by
      rw [degree_generator]
      exact degree_ofRegister _
    have zero : ofRegister (a ^^^ b) = 0 := by
      by_contra nonzero
      exact monic_generator.not_dvd_of_degree_lt nonzero short divides
    have none_differs : a ^^^ b = b ^^^ b := by
      rw [ofRegister_eq_zero (Nat.xor_lt_two_pow small small') zero, Nat.xor_self]
    exact xor_right_cancel none_differs
  · rintro rfl
    rfl

/-- Two messages have one checksum just when the generator divides their difference. -/
theorem checksum_eq_iff (xs ys : List UInt8) :
    checksum xs = checksum ys ↔ generator ∣ message xs - message ys := by
  rw [← AdjoinRoot.mk_eq_mk, ← remainder_message, ← remainder_message,
    remainder_inj (foldl_feed_lt (by decide) xs) (foldl_feed_lt (by decide) ys)]
  exact ⟨xor_right_cancel, congrArg (· ^^^ mask)⟩

end

end Crc32
