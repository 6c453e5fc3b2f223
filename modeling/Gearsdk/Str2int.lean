import Gearsdk.Qstring
import Mathlib.Data.Nat.Notation
import Mathlib.Algebra.Group.Int.Defs

/-! Numbers that are read from their decimal text. -/
namespace Gearsdk

namespace Qstring

def isspace (byte : UInt8) : Bool := byte = 32 || (9 ≤ byte.toNat && byte.toNat ≤ 13)

def isdigit (byte : UInt8) : Bool := 48 ≤ byte.toNat && byte.toNat ≤ 57

/-- `%u`. -/
def unsigned (n : Nat) : Qstring := (Nat.toDigits 10 n).map fun c => UInt8.ofNat c.toNat

/-- `%d` and `%ld`. -/
def signed : Int → Qstring
  | .ofNat n => unsigned n
  | .negSucc n => 45 :: unsigned (n + 1)

end Qstring

/-- The result of `strtol`: `rest` is the text from `end` on. -/
structure Strtol where
  value : Int
  erange : Bool
  rest : Qstring
  deriving DecidableEq

namespace Strtol

def longMax : Int := 9223372036854775807

def longMin : Int := -9223372036854775808

/-- The digits at the start of a text, after a prefix of value `value`. -/
def accumulate (value : Nat) : Qstring → Nat × Qstring
  | [] => (value, [])
  | digit :: rest =>
      if Qstring.isdigit digit then accumulate (10 * value + (digit.toNat - 48)) rest
      else (value, digit :: rest)

def sign : Qstring → Int × Qstring
  | 45 :: rest => (-1, rest)
  | 43 :: rest => (1, rest)
  | rest => (1, rest)

/-- Base 10. Without a digit nothing is converted. -/
def strtol (s : Qstring) : Strtol :=
  let (sign, digits) := sign (s.dropWhile Qstring.isspace)
  if digits.head?.any Qstring.isdigit then
    let (magnitude, rest) := accumulate 0 digits
    let value := sign * magnitude
    if longMax < value then ⟨longMax, true, rest⟩
    else if value < longMin then ⟨longMin, true, rest⟩
    else ⟨value, false, rest⟩
  else ⟨0, false, s⟩

end Strtol

inductive Str2int where
  | success (out : Int)
  | overflow
  | underflow
  | inconvertible
  deriving DecidableEq

namespace Str2int
open Strtol

def intMax : Int := 2147483647

def intMin : Int := -2147483648

def str2int (s : Qstring) (slen : Nat) : Str2int :=
  let text := Qstring.cString s
  if slen = 0 || text = [] || text.head?.any Qstring.isspace then .inconvertible
  else if text.length > slen then .inconvertible
  else
    let l := strtol text
    if (l.erange && l.value = longMax) || intMax < l.value then .overflow
    else if (l.erange && l.value = longMin) || l.value < intMin then .underflow
    else if l.rest ≠ [] then .inconvertible
    else .success l.value

end Str2int

namespace Qstring

/-- A digit of a decimal text is one byte. -/
theorem digit_toNat {c : Char} (digit : c.isDigit = true) :
    (UInt8.ofNat c.toNat).toNat = c.toNat ∧ 48 ≤ c.toNat ∧ c.toNat ≤ 57 := by
  simp only [Char.isDigit, Bool.and_eq_true, decide_eq_true_eq, ge_iff_le,
    UInt32.le_iff_toNat_le] at digit
  obtain ⟨low, high⟩ := digit
  have low : 48 ≤ c.toNat := low
  have high : c.toNat ≤ 57 := high
  refine ⟨?_, low, high⟩
  rw [UInt8.toNat_ofNat']
  omega

theorem unsigned_digits (n : Nat) : ∀ byte ∈ unsigned n, isdigit byte = true := by
  intro byte member
  obtain ⟨c, inside, rfl⟩ := List.mem_map.mp member
  obtain ⟨same, low, high⟩ :=
    digit_toNat (Nat.isDigit_of_mem_toDigits (by decide) (by decide) inside)
  simp only [isdigit, same, low, high, decide_true, Bool.and_self]

theorem unsigned_ne_nil (n : Nat) : unsigned n ≠ [] := by
  simpa only [unsigned, ne_eq, List.map_eq_nil_iff] using Nat.toDigits_ne_nil

theorem isdigit_bounds (digit : isdigit byte = true) : 48 ≤ byte.toNat ∧ byte.toNat ≤ 57 := by
  simpa only [isdigit, Bool.and_eq_true, decide_eq_true_eq] using digit

theorem isspace_of_digit (digit : isdigit byte = true) : isspace byte = false := by
  obtain ⟨low, high⟩ := isdigit_bounds digit
  have other : ¬ byte = 32 := by
    rintro rfl
    exact absurd low (by decide)
  simp only [isspace, other, decide_false, Bool.false_or, Bool.and_eq_false_iff,
    decide_eq_false_iff_not]
  omega

theorem clean_of_digits (digits : ∀ byte ∈ s, isdigit byte = true) : Clean s := by
  rintro byte member rfl
  have bounds := isdigit_bounds (digits 0 member)
  exact absurd bounds.1 (by decide)

end Qstring

namespace Strtol
open Qstring

theorem accumulate_digits {chars : List Char} (digits : ∀ c ∈ chars, c.isDigit = true)
    (value : Nat) :
    accumulate value (chars.map fun c => UInt8.ofNat c.toNat) =
      (Nat.ofDigitChars 10 chars value, []) := by
  induction chars generalizing value with
  | nil => rfl
  | cons c rest ih =>
    obtain ⟨same, low, high⟩ := digit_toNat (digits c List.mem_cons_self)
    have digit : isdigit (UInt8.ofNat c.toNat) = true := by
      simp only [isdigit, same, low, high, decide_true, Bool.and_self]
    rw [List.map_cons, accumulate, if_pos digit,
      ih fun c later => digits c (List.mem_cons_of_mem _ later), same, Nat.ofDigitChars_cons]
    rfl

theorem accumulate_unsigned (n : Nat) : accumulate 0 (unsigned n) = (n, []) := by
  rw [unsigned, accumulate_digits fun c inside =>
    Nat.isDigit_of_mem_toDigits (by decide) (by decide) inside,
    Nat.ofDigitChars_ten_toDigits]

/-- A text that begins with a digit has neither leading spaces nor a sign. -/
theorem sign_of_digit {rest : Qstring} (digit : isdigit byte = true) :
    sign ((byte :: rest).dropWhile isspace) = (1, byte :: rest) := by
  obtain ⟨low, high⟩ := isdigit_bounds digit
  rw [List.dropWhile_cons_of_neg (by simp only [isspace_of_digit digit, Bool.false_eq_true,
    not_false_eq_true])]
  have minus : byte ≠ 45 := by
    rintro rfl
    exact absurd low (by decide)
  have plus : byte ≠ 43 := by
    rintro rfl
    exact absurd low (by decide)
  rw [sign]
  · intro tail same
    exact minus (List.cons.inj same).1
  · intro tail same
    exact plus (List.cons.inj same).1

theorem strtol_unsigned {n : Nat} (bounded : (n : Int) ≤ longMax) :
    strtol (unsigned n) = ⟨n, false, []⟩ := by
  obtain ⟨byte, rest, shape⟩ := List.exists_cons_of_ne_nil (unsigned_ne_nil n)
  have digit := unsigned_digits n byte (by simp only [shape, List.mem_cons_self])
  have read := accumulate_unsigned n
  rw [shape] at read ⊢
  have high : ¬ longMax < (n : Int) := by omega
  have low : ¬ (n : Int) < longMin := by
    simp only [longMin]
    omega
  simp only [strtol, sign_of_digit digit, List.head?_cons, Option.any_some, digit, if_true, read,
    Int.one_mul, if_neg high, if_neg low]

end Strtol

namespace Str2int
open Qstring Strtol

theorem str2int_unsigned {n : Nat} (bounded : (n : Int) ≤ intMax) :
    str2int (unsigned n) (unsigned n).length = .success n := by
  obtain ⟨byte, rest, shape⟩ := List.exists_cons_of_ne_nil (unsigned_ne_nil n)
  have digits := unsigned_digits n
  have text : cString (unsigned n) = unsigned n := cString_of_nul_free (clean_of_digits digits)
  have space := isspace_of_digit (digits byte (by simp only [shape, List.mem_cons_self]))
  have long : (n : Int) ≤ longMax := by
    simp only [intMax, longMax] at bounded ⊢
    omega
  have high : ¬ intMax < (n : Int) := by omega
  have low : ¬ (n : Int) < intMin := by
    simp only [intMin]
    omega
  have starts : (unsigned n).head?.any isspace = false := by
    simp only [shape, List.head?_cons, Option.any_some, space]
  have filled : (unsigned n).length ≠ 0 := by
    simpa only [ne_eq, List.length_eq_zero_iff] using unsigned_ne_nil n
  simp only [str2int, text, filled, unsigned_ne_nil n, starts, decide_false, Bool.or_self,
    Bool.false_eq_true, if_false, gt_iff_lt, Nat.lt_irrefl, strtol_unsigned long, Bool.false_and,
    high, low, ne_eq, not_true_eq_false]

example : str2int (literal "4005") 4 = .success 4005 := by decide +kernel

end Str2int
end Gearsdk
